import AxonVex.Machinery.Machine
import Mathlib.Data.List.Infix
import Mathlib.Data.Nat.ModEq
import Mathlib.Logic.Function.Basic

/-!
# Machinery/TicketRing — a bounded queue over a ring of numbered slots

    enqueue:  pos ← enqueuePos;  slot pos says pos?     claim pos;  write;  slot pos ← pos + 1
    dequeue:  pos ← dequeuePos;  slot pos says pos + 1? claim pos;  read;   slot pos ← pos + capacity

Any number of threads enqueue and dequeue; every line is several steps, and a claim is a
compare-and-exchange that may fail for no reason.  A claimed position is a **ticket**: the items, in
the order of their tickets, are the queue's `log`.  In every run the item that a dequeue gets is the
one of its ticket (`Sound`), and if the dequeues follow one another the items come out in the order
of the log (`OneConsumer`).

What stands in a slot is told by its **cell**: the ticket the slot is at, and whether it is free for
it, being filled, full, or being emptied, and by whom.
-/

namespace Machinery

/-- Where a thread stands in the queue. -/
inductive RingPc (R : Type*)
  | out
  /-- about to read `enqueuePos` -/
  | enqueue (item : R)
  /-- about to read the number of the slot -/
  | probe (item : R) (pos : ℕ)
  /-- about to claim the position -/
  | claim (item : R) (pos : ℕ)
  | write (item : R) (pos : ℕ)
  /-- about to number the slot -/
  | publish (item : R) (pos : ℕ)
  /-- about to return -/
  | enqueued (item : R) (accepted : Bool)
  | dequeue
  | inspect (pos : ℕ)
  | take (pos : ℕ)
  | read (pos : ℕ)
  | release (item : R) (pos : ℕ)
  | dequeued (item : Option R)
  deriving DecidableEq, Repr

/-- The thread is not in the queue. -/
def RingPc.isOut {R : Type*} : RingPc R → Bool
  | out => true
  | _ => false

theorem RingPc.eq_out {R : Type*} {pc : RingPc R} (h : pc.isOut = true) : pc = out := by
  cases pc with
  | out => rfl
  | _ => exact absurd h (by simp [isOut])

/-- The position whose slot the thread fills. -/
def RingPc.fills? {R : Type*} : RingPc R → Option ℕ
  | write _ pos => some pos
  | publish _ pos => some pos
  | _ => none

/-- The thread is in a dequeue. -/
def RingPc.consumes {R : Type*} : RingPc R → Bool
  | dequeue => true
  | inspect _ => true
  | take _ => true
  | read _ => true
  | release _ _ => true
  | dequeued _ => true
  | _ => false

/-- The queue, and where the threads stand. -/
structure TicketRing (T R : Type*) where
  capacity : ℕ
  enqueuePos : ℕ := 0
  dequeuePos : ℕ := 0
  /-- the number of a slot -/
  sequence : ℕ → ℕ := id
  storage : ℕ → Option R := fun _ => none
  pcs : T → RingPc R := fun _ => .out
  /-- the items in the order of their tickets -/
  log : List R := []

/-- A step of a run. -/
inductive RingLabel (T R : Type*)
  | enqueue (t : T) (item : R)
  | dequeue (t : T)
  /-- the next step of a thread; a claim may fail for no reason -/
  | step (t : T) (spurious : Bool)
  /-- the thread returns -/
  | leave (t : T)
  deriving DecidableEq, Repr

namespace TicketRing

variable {T R : Type*} [DecidableEq T] (s : TicketRing T R) (t : T)

/-- The slot of a position. -/
def index (pos : ℕ) : ℕ := pos % s.capacity

/-- The place of one thread changes. -/
def goto (pc : RingPc R) : TicketRing T R := { s with pcs := Function.update s.pcs t pc }

/-- The slot of a position gets a number. -/
def number (pos n : ℕ) : TicketRing T R :=
  { s with sequence := Function.update s.sequence (s.index pos) n }

/-- The slot of a position gets, or loses, its item. -/
def store (pos : ℕ) (item : Option R) : TicketRing T R :=
  { s with storage := Function.update s.storage (s.index pos) item }

/-- The next step of a thread. -/
def stepThread (spurious : Bool) : Option (TicketRing T R) :=
  match s.pcs t with
  | .enqueue item => some (s.goto t (.probe item s.enqueuePos))
  | .probe item pos =>
    some (s.goto t (
      if s.sequence (s.index pos) = pos then .claim item pos
      else if s.sequence (s.index pos) < pos then .enqueued item false
      else .enqueue item))
  | .claim item pos =>
    if s.enqueuePos = pos ∧ spurious = false then
      some { s.goto t (.write item pos) with enqueuePos := pos + 1, log := s.log ++ [item] }
    else some (s.goto t (.probe item s.enqueuePos))
  | .write item pos => some ((s.store pos (some item)).goto t (.publish item pos))
  | .publish item pos => some ((s.number pos (pos + 1)).goto t (.enqueued item true))
  | .dequeue => some (s.goto t (.inspect s.dequeuePos))
  | .inspect pos =>
    some (s.goto t (
      if s.sequence (s.index pos) = pos + 1 then .take pos
      else if s.sequence (s.index pos) < pos + 1 then .dequeued none
      else .dequeue))
  | .take pos =>
    if s.dequeuePos = pos ∧ spurious = false then
      some { s.goto t (.read pos) with dequeuePos := pos + 1 }
    else some (s.goto t (.inspect s.dequeuePos))
  | .read pos =>
    (s.storage (s.index pos)).map fun item => (s.store pos none).goto t (.release item pos)
  | .release item pos =>
    some ((s.number pos (pos + s.capacity)).goto t (.dequeued (some item)))
  | _ => none

/-- The step with this label. -/
def step : RingLabel T R → Option (TicketRing T R)
  | .enqueue t item => if (s.pcs t).isOut then some (s.goto t (.enqueue item)) else none
  | .dequeue t => if (s.pcs t).isOut then some (s.goto t .dequeue) else none
  | .step t spurious => s.stepThread t spurious
  | .leave t => match s.pcs t with
    | .enqueued _ _ => some (s.goto t .out)
    | .dequeued _ => some (s.goto t .out)
    | _ => none

end TicketRing

/-- What stands in a slot. -/
inductive Cell (T : Type*)
  | free (ticket : ℕ)
  | filling (ticket : ℕ) (by_ : T)
  | full (ticket : ℕ)
  | emptying (ticket : ℕ) (by_ : T)

namespace Cell

variable {T : Type*}

def ticket : Cell T → ℕ
  | free p => p
  | filling p _ => p
  | full p => p
  | emptying p _ => p

/-- The number that the slot then has. -/
def sequence : Cell T → ℕ
  | free p => p
  | filling p _ => p
  | full p => p + 1
  | emptying p _ => p + 1

end Cell

namespace TicketRing

variable {T R : Type*} {s : TicketRing T R} {cell : ℕ → Cell T} {t u : T} {pc : RingPc R}

/-! ## The invariant -/

/-- What the place of the thread `t` says of the cells. -/
def Fits (s : TicketRing T R) (cell : ℕ → Cell T) (t : T) : RingPc R → Prop
  | .probe _ pos => pos ≤ s.enqueuePos
  | .claim _ pos => pos < s.enqueuePos ∨ cell (s.index pos) = .free pos
  | .write item pos => cell (s.index pos) = .filling pos t ∧ s.log[pos]? = some item ∧
      s.storage (s.index pos) = none
  | .publish item pos => cell (s.index pos) = .filling pos t ∧ s.log[pos]? = some item ∧
      s.storage (s.index pos) = some item
  | .take pos => pos < s.dequeuePos ∨ cell (s.index pos) = .full pos
  | .read pos => cell (s.index pos) = .emptying pos t ∧
      ∃ item, s.storage (s.index pos) = some item ∧ s.log[pos]? = some item
  | .release item pos => cell (s.index pos) = .emptying pos t ∧ s.log[pos]? = some item ∧
      s.storage (s.index pos) = none
  | _ => True

/-- What stands in the slot `i`. -/
def Holds (s : TicketRing T R) (i : ℕ) : Cell T → Prop
  | .free p => s.enqueuePos ≤ p ∧ s.storage i = none
  | .filling p _ => s.dequeuePos ≤ p ∧ p < s.enqueuePos ∧ s.enqueuePos ≤ p + s.capacity
  | .full p => s.dequeuePos ≤ p ∧ p < s.enqueuePos ∧ s.enqueuePos ≤ p + s.capacity ∧
      ∃ item, s.storage i = some item ∧ s.log[p]? = some item
  | .emptying p _ => p < s.dequeuePos ∧ s.enqueuePos ≤ p + s.capacity

/-- The tickets that have been given and not been taken stand in their slots. -/
def Stands (p : ℕ) : Cell T → Prop
  | .filling q _ => q = p
  | .full q => q = p
  | _ => False

/-- **The cells tell the state of the queue.** -/
structure Told (s : TicketRing T R) (cell : ℕ → Cell T) : Prop where
  capacity : 2 ≤ s.capacity
  length : s.log.length = s.enqueuePos
  le : s.dequeuePos ≤ s.enqueuePos
  slot : ∀ i < s.capacity, s.index (cell i).ticket = i
  sequence : ∀ i < s.capacity, s.sequence i = (cell i).sequence
  holds : ∀ i < s.capacity, s.Holds i (cell i)
  stands : ∀ p, s.dequeuePos ≤ p → p < s.enqueuePos → Stands p (cell (s.index p))
  fits : ∀ t, s.Fits cell t (s.pcs t)
  /-- a slot is filled by a thread that does so -/
  filler : ∀ i < s.capacity, ∀ p t, cell i = .filling p t → (s.pcs t).fills? = some p

/-- **The invariant of the queue.** -/
def Sound (s : TicketRing T R) : Prop := ∃ cell : ℕ → Cell T, s.Told cell

theorem index_add_capacity (s : TicketRing T R) (p : ℕ) :
    s.index (p + s.capacity) = s.index p :=
  Nat.add_mod_right ..

theorem Told.index_lt (h : s.Told cell) (p : ℕ) : s.index p < s.capacity :=
  Nat.mod_lt _ (by have := h.capacity; omega)

/-- Neighbours stand in different slots. -/
theorem Told.index_succ_ne (h : s.Told cell) (p : ℕ) : s.index p ≠ s.index (p + 1) := by
  intro hsame
  have hdvd := (Nat.modEq_iff_dvd' (Nat.le_succ p)).mp hsame
  rw [Nat.succ_eq_add_one, Nat.add_sub_cancel_left] at hdvd
  have hone := Nat.le_of_dvd Nat.one_pos hdvd
  have hcap := h.capacity
  omega

/-- A slot says that it is at a position: it is free for it, or being filled. -/
theorem Told.at_ticket (h : s.Told cell) {p : ℕ} (hseq : s.sequence (s.index p) = p) :
    p < s.enqueuePos ∨ cell (s.index p) = .free p := by
  have hlt := h.index_lt p
  have hcell : (cell (s.index p)).sequence = p := (h.sequence _ hlt).symm.trans hseq
  have hslot := h.slot _ hlt
  have hholds := h.holds _ hlt
  have hcap := h.capacity
  revert hcell hslot hholds
  generalize cell (s.index p) = c
  intro hcell hslot hholds
  cases c with
  | free q => exact .inr (congrArg Cell.free hcell)
  | filling q u =>
    obtain rfl : q = p := hcell
    exact .inl hholds.2.1
  | full q =>
    obtain rfl : q + 1 = p := hcell
    exact absurd hslot (h.index_succ_ne q)
  | emptying q u =>
    obtain rfl : q + 1 = p := hcell
    exact absurd hslot (h.index_succ_ne q)

/-- A slot says that it is full for a position: it is, or its item has been taken. -/
theorem Told.at_full (h : s.Told cell) {p : ℕ} (hseq : s.sequence (s.index p) = p + 1) :
    p < s.dequeuePos ∨ cell (s.index p) = .full p := by
  have hlt := h.index_lt p
  have hcell : (cell (s.index p)).sequence = p + 1 := (h.sequence _ hlt).symm.trans hseq
  have hslot := h.slot _ hlt
  have hholds := h.holds _ hlt
  revert hcell hslot hholds
  generalize cell (s.index p) = c
  intro hcell hslot hholds
  cases c with
  | free q =>
    obtain rfl : q = p + 1 := hcell
    exact absurd hslot.symm (h.index_succ_ne p)
  | filling q u =>
    obtain rfl : q = p + 1 := hcell
    exact absurd hslot.symm (h.index_succ_ne p)
  | full q => exact .inr (congrArg Cell.full (Nat.succ.inj hcell))
  | emptying q u =>
    obtain rfl : q = p := Nat.succ.inj hcell
    exact .inl hholds.1

/-! ## Steps -/

section Steps

variable [DecidableEq T] {s' : TicketRing T R} {i : ℕ} {c : Cell T}

/-- A thread goes to a place that says nothing new. -/
theorem Told.goto (h : s.Told cell) (hnone : (s.pcs t).fills? = none) (hpc : s.Fits cell t pc) :
    (s.goto t pc).Told cell :=
  { h with
    fits := fun u => by
      change s.Fits cell u (Function.update s.pcs t pc u)
      by_cases hut : u = t
      · subst hut
        rw [Function.update_self]
        exact hpc
      · rw [Function.update_of_ne hut]
        exact h.fits u
    filler := fun i hi p u hcell => by
      have hfills := h.filler i hi p u hcell
      have hut : u ≠ t := by
        rintro rfl
        rw [hnone] at hfills
        cases hfills
      exact (congrArg RingPc.fills? (Function.update_of_ne hut ..)).trans hfills }

/-- A step touches one slot, and the tickets of that slot only. -/
structure Touches (s s' : TicketRing T R) (i : ℕ) : Prop where
  capacity : s'.capacity = s.capacity
  sequence : ∀ j, j ≠ i → s'.sequence j = s.sequence j
  storage : ∀ j, j ≠ i → s'.storage j = s.storage j
  enqueuePos : s.enqueuePos ≤ s'.enqueuePos
  dequeuePos : s.dequeuePos ≤ s'.dequeuePos
  given : ∀ p, s.enqueuePos ≤ p → p < s'.enqueuePos → s.index p = i
  taken : ∀ p, s.dequeuePos ≤ p → p < s'.dequeuePos → s.index p = i
  log : ∀ (p : ℕ) (item : R), s.log[p]? = some item → s'.log[p]? = some item

/-- Another slot holds what it held. -/
theorem Told.holds_of_ne (h : s.Told cell) (ht : Touches s s' i) {j : ℕ} (hj : j < s.capacity)
    (hji : j ≠ i) : s'.Holds j (cell j) := by
  have hholds := h.holds j hj
  have hslot := h.slot j hj
  revert hholds hslot
  generalize cell j = c
  intro hholds hslot
  -- a ticket that the step gives, or takes, is one of the other slot
  have hgiven (q : ℕ) (hq : s.index q = j) (hle : s.enqueuePos ≤ q) : s'.enqueuePos ≤ q :=
    Nat.le_of_not_lt fun hlt => hji (hq.symm.trans (ht.given q hle hlt))
  have htaken (q : ℕ) (hq : s.index q = j) (hle : s.dequeuePos ≤ q) : s'.dequeuePos ≤ q :=
    Nat.le_of_not_lt fun hlt => hji (hq.symm.trans (ht.taken q hle hlt))
  have hround (q : ℕ) (hq : s.index q = j) (hle : s.enqueuePos ≤ q + s.capacity) :
      s'.enqueuePos ≤ q + s'.capacity := by
    rw [ht.capacity]
    exact hgiven _ ((s.index_add_capacity q).trans hq) hle
  cases c with
  | free q => exact ⟨hgiven q hslot hholds.1, (ht.storage j hji).trans hholds.2⟩
  | filling q u =>
    obtain ⟨hle, hlt, hnext⟩ := hholds
    exact ⟨htaken q hslot hle, hlt.trans_le ht.enqueuePos, hround q hslot hnext⟩
  | full q =>
    obtain ⟨hle, hlt, hnext, item, hitem, hlog⟩ := hholds
    exact ⟨htaken q hslot hle, hlt.trans_le ht.enqueuePos, hround q hslot hnext, item,
      (ht.storage j hji).trans hitem, ht.log q item hlog⟩
  | emptying q u => exact ⟨hholds.1.trans_le ht.dequeuePos, hround q hslot hholds.2⟩

/-- Another thread's place fits still, unless it relied on the slot that is touched. -/
theorem Told.fits_of_ne (h : s.Told cell) (ht : Touches s s' i)
    (hfilling : ∀ q, cell i ≠ .filling q u) (hemptying : ∀ q, cell i ≠ .emptying q u)
    (hfree : ∀ q, cell i = .free q → q < s'.enqueuePos)
    (hfull : ∀ q, cell i = .full q → q < s'.dequeuePos) :
    s'.Fits (Function.update cell i c) u (s.pcs u) := by
  have hfits := h.fits u
  have hindex (q : ℕ) : s'.index q = s.index q := by rw [index, index, ht.capacity]
  revert hfits
  generalize s.pcs u = pc
  intro hfits
  cases pc with
  | probe item q => exact le_trans hfits ht.enqueuePos
  | claim item q =>
    rcases hfits with hlt | hcell
    · exact .inl (hlt.trans_le ht.enqueuePos)
    · by_cases hqi : s.index q = i
      · exact .inl (hfree q (hqi ▸ hcell))
      · refine .inr ?_
        rw [hindex, Function.update_of_ne hqi]
        exact hcell
  | take q =>
    rcases hfits with hlt | hcell
    · exact .inl (hlt.trans_le ht.dequeuePos)
    · by_cases hqi : s.index q = i
      · exact .inl (hfull q (hqi ▸ hcell))
      · refine .inr ?_
        rw [hindex, Function.update_of_ne hqi]
        exact hcell
  | write item q =>
    obtain ⟨hcell, hlog, hempty⟩ := hfits
    have hqi : s.index q ≠ i := fun hqi => hfilling q (hqi ▸ hcell)
    refine ⟨?_, ht.log q item hlog, ?_⟩
    · rw [hindex, Function.update_of_ne hqi]
      exact hcell
    · rw [hindex, ht.storage _ hqi]
      exact hempty
  | publish item q =>
    obtain ⟨hcell, hlog, hitem⟩ := hfits
    have hqi : s.index q ≠ i := fun hqi => hfilling q (hqi ▸ hcell)
    refine ⟨?_, ht.log q item hlog, ?_⟩
    · rw [hindex, Function.update_of_ne hqi]
      exact hcell
    · rw [hindex, ht.storage _ hqi]
      exact hitem
  | read q =>
    obtain ⟨hcell, item, hitem, hlog⟩ := hfits
    have hqi : s.index q ≠ i := fun hqi => hemptying q (hqi ▸ hcell)
    refine ⟨?_, item, ?_, ht.log q item hlog⟩
    · rw [hindex, Function.update_of_ne hqi]
      exact hcell
    · rw [hindex, ht.storage _ hqi]
      exact hitem
  | release item q =>
    obtain ⟨hcell, hlog, hempty⟩ := hfits
    have hqi : s.index q ≠ i := fun hqi => hemptying q (hqi ▸ hcell)
    refine ⟨?_, ht.log q item hlog, ?_⟩
    · rw [hindex, Function.update_of_ne hqi]
      exact hcell
    · rw [hindex, ht.storage _ hqi]
      exact hempty
  | _ => trivial

/-- What a step of the thread `t` makes of the slot it touches. -/
structure Turns (s s' : TicketRing T R) (cell : ℕ → Cell T) (t : T) (i : ℕ) (c : Cell T) : Prop where
  touches : Touches s s' i
  lt : i < s.capacity
  length : s'.log.length = s'.enqueuePos
  le : s'.dequeuePos ≤ s'.enqueuePos
  slot : s.index c.ticket = i
  sequence : s'.sequence i = c.sequence
  holds : s'.Holds i c
  stands : ∀ p, s'.dequeuePos ≤ p → p < s'.enqueuePos → s.index p = i → Stands p c
  filling : ∀ q u, cell i = .filling q u → u = t
  emptying : ∀ q u, cell i = .emptying q u → u = t
  free : ∀ q, cell i = .free q → q < s'.enqueuePos
  full : ∀ q, cell i = .full q → q < s'.dequeuePos

/-- **A step that turns one slot.** -/
theorem Told.turn (h : s.Told cell) (ht : Turns s s' cell t i c)
    (hpc : s'.Fits (Function.update cell i c) t pc) (hpcs : s'.pcs = s.pcs)
    (hfills : ∀ p, (s.pcs t).fills? = some p → s.index p = i)
    (hfiller : ∀ p u, c = .filling p u → u = t ∧ pc.fills? = some p) :
    (s'.goto t pc).Told (Function.update cell i c) := by
  have hindex (q : ℕ) : s'.index q = s.index q := by rw [index, index, ht.touches.capacity]
  have hcell (j : ℕ) (hj : j ≠ i) : Function.update cell i c j = cell j := Function.update_of_ne hj ..
  constructor
  · exact ht.touches.capacity.symm ▸ h.capacity
  · exact ht.length
  · exact ht.le
  · intro j hj
    change s'.index _ = j
    rw [hindex]
    by_cases hji : j = i
    · subst hji
      rw [Function.update_self]
      exact ht.slot
    · rw [hcell j hji]
      exact h.slot j (ht.touches.capacity ▸ hj)
  · intro j hj
    change s'.sequence j = _
    by_cases hji : j = i
    · subst hji
      rw [Function.update_self]
      exact ht.sequence
    · rw [hcell j hji, ht.touches.sequence j hji]
      exact h.sequence j (ht.touches.capacity ▸ hj)
  · intro j hj
    change s'.Holds j _
    by_cases hji : j = i
    · subst hji
      rw [Function.update_self]
      exact ht.holds
    · rw [hcell j hji]
      exact h.holds_of_ne ht.touches (ht.touches.capacity ▸ hj) hji
  · intro p hp hlt
    change Stands p (Function.update cell i c (s'.index p))
    rw [hindex]
    by_cases hpi : s.index p = i
    · rw [hpi, Function.update_self]
      exact ht.stands p hp hlt hpi
    · rw [hcell _ hpi]
      refine h.stands p (ht.touches.dequeuePos.trans hp) ?_
      exact Nat.lt_of_not_le fun hle => hpi (ht.touches.given p hle hlt)
  · intro u
    change s'.Fits _ u (Function.update s'.pcs t pc u)
    by_cases hut : u = t
    · subst hut
      rw [Function.update_self]
      exact hpc
    · rw [Function.update_of_ne hut, hpcs]
      exact h.fits_of_ne ht.touches (fun q hq => hut (ht.filling q u hq))
        (fun q hq => hut (ht.emptying q u hq)) ht.free ht.full
  · intro j hj p u hu
    change (Function.update s'.pcs t pc u).fills? = some p
    by_cases hji : j = i
    · subst hji
      rw [Function.update_self] at hu
      obtain ⟨rfl, hpcp⟩ := hfiller p u hu
      rw [Function.update_self]
      exact hpcp
    · rw [hcell j hji] at hu
      have hj' : j < s.capacity := ht.touches.capacity ▸ hj
      have hslot := h.slot j hj'
      rw [hu] at hslot
      have hut : u ≠ t := by
        rintro rfl
        exact hji (hslot.symm.trans (hfills p (h.filler j hj' p u hu)))
      rw [Function.update_of_ne hut, hpcs]
      exact h.filler j hj' p u hu

theorem touches_number (pos n : ℕ) : Touches s (s.number pos n) (s.index pos) where
  capacity := rfl
  sequence _ hj := Function.update_of_ne hj ..
  storage _ _ := rfl
  enqueuePos := le_rfl
  dequeuePos := le_rfl
  given _ hle hlt := absurd hle (Nat.not_le_of_lt hlt)
  taken _ hle hlt := absurd hle (Nat.not_le_of_lt hlt)
  log _ _ h := h

theorem touches_store (pos : ℕ) (item : Option R) :
    Touches s (s.store pos item) (s.index pos) where
  capacity := rfl
  sequence _ _ := rfl
  storage _ hj := Function.update_of_ne hj ..
  enqueuePos := le_rfl
  dequeuePos := le_rfl
  given _ hle hlt := absurd hle (Nat.not_le_of_lt hlt)
  taken _ hle hlt := absurd hle (Nat.not_le_of_lt hlt)
  log _ _ h := h

/-- **A claim of a ticket.** -/
theorem Told.claim (h : s.Told cell) {item : R} {pos : ℕ} (hpc : s.pcs t = .claim item pos)
    (hpos : s.enqueuePos = pos) : Sound { s.goto t (.write item pos) with
      enqueuePos := pos + 1, log := s.log ++ [item] } := by
  have hcap := h.capacity
  have hfree : cell (s.index pos) = .free pos := by
    have hfits := h.fits t
    rw [hpc] at hfits
    exact hfits.resolve_left (by omega)
  have hlog : (s.log ++ [item])[pos]? = some item := by
    rw [← hpos, ← h.length, List.getElem?_concat_length]
  have hholds := h.holds _ (h.index_lt pos)
  rw [hfree] at hholds
  refine ⟨Function.update cell (s.index pos) (.filling pos t), ?_⟩
  change (({ s with enqueuePos := pos + 1, log := s.log ++ [item] } : TicketRing T R).goto t
    (.write item pos)).Told _
  refine h.turn ?_ ?_ rfl ?_ ?_
  · exact
      { touches :=
          { capacity := rfl, sequence := fun _ _ => rfl, storage := fun _ _ => rfl
            enqueuePos := by dsimp only; omega
            dequeuePos := le_rfl
            given := fun p hle hlt => congrArg s.index (by dsimp only at hlt; omega)
            taken := fun p hle hlt => absurd hle (Nat.not_le_of_lt hlt)
            log := fun p x hx => by
              have hlt : p < s.log.length := (List.getElem?_eq_some_iff.mp hx).1
              rw [List.getElem?_append_left hlt]
              exact hx }
        lt := h.index_lt pos
        length := by
          have hlength := h.length
          simp only [List.length_append, List.length_singleton]
          omega
        le := by
          have hle := h.le
          dsimp only
          omega
        slot := rfl
        sequence := (h.sequence _ (h.index_lt pos)).trans (by rw [hfree]; rfl)
        holds := by
          have hle := h.le
          exact ⟨by dsimp only; omega, by dsimp only; omega, by dsimp only; omega⟩
        stands := fun p hle hlt hindex => by
          by_contra hne
          have hstands := h.stands p hle (by dsimp only at hlt; simp only [Stands] at hne; omega)
          rw [hindex, hfree] at hstands
          exact hstands
        filling := fun q u hq => absurd (hfree.symm.trans hq) (by simp)
        emptying := fun q u hq => absurd (hfree.symm.trans hq) (by simp)
        free := fun q hq => by
          obtain rfl := Cell.free.inj (hfree.symm.trans hq)
          exact Nat.lt_succ_self _
        full := fun q hq => absurd (hfree.symm.trans hq) (by simp) }
  · exact ⟨Function.update_self .., hlog, hholds.2⟩
  · rw [hpc]
    rintro p ⟨⟩
  · rintro p u ⟨⟩
    exact ⟨rfl, rfl⟩

/-- The item is written. -/
theorem Told.write (h : s.Told cell) {item : R} {pos : ℕ} (hpc : s.pcs t = .write item pos) :
    Sound ((s.store pos (some item)).goto t (.publish item pos)) := by
  have hfits := h.fits t
  rw [hpc] at hfits
  obtain ⟨hcell, hlog, -⟩ := hfits
  have hholds := h.holds _ (h.index_lt pos)
  rw [hcell] at hholds
  refine ⟨_, h.turn (c := .filling pos t) (i := s.index pos) ?_ ?_ rfl ?_ ?_⟩
  · exact
      { touches := touches_store ..
        lt := h.index_lt pos
        length := h.length
        le := h.le
        slot := rfl
        sequence := (h.sequence _ (h.index_lt pos)).trans (by rw [hcell])
        holds := hholds
        stands := fun p hle hlt hindex => by
          have hstands := h.stands p hle hlt
          rw [hindex, hcell] at hstands
          exact hstands
        filling := fun q u hq => (Cell.filling.inj (hcell.symm.trans hq)).2.symm
        emptying := fun q u hq => absurd (hcell.symm.trans hq) (by simp)
        free := fun q hq => absurd (hcell.symm.trans hq) (by simp)
        full := fun q hq => absurd (hcell.symm.trans hq) (by simp) }
  · exact ⟨Function.update_self .., hlog, Function.update_self ..⟩
  · rw [hpc]
    rintro p ⟨⟩
    rfl
  · rintro p u ⟨⟩
    exact ⟨rfl, rfl⟩

/-- The slot is numbered: it is full. -/
theorem Told.publish (h : s.Told cell) {item : R} {pos : ℕ} (hpc : s.pcs t = .publish item pos) :
    Sound ((s.number pos (pos + 1)).goto t (.enqueued item true)) := by
  have hfits := h.fits t
  rw [hpc] at hfits
  obtain ⟨hcell, hlog, hitem⟩ := hfits
  have hholds := h.holds _ (h.index_lt pos)
  rw [hcell] at hholds
  refine ⟨Function.update cell (s.index pos) (.full pos), h.turn ?_ trivial rfl ?_ ?_⟩
  · exact
      { touches := touches_number ..
        lt := h.index_lt pos
        length := h.length
        le := h.le
        slot := rfl
        sequence := Function.update_self ..
        holds := ⟨hholds.1, hholds.2.1, hholds.2.2, item, hitem, hlog⟩
        stands := fun p hle hlt hindex => by
          have hstands := h.stands p hle hlt
          rw [hindex, hcell] at hstands
          exact hstands
        filling := fun q u hq => (Cell.filling.inj (hcell.symm.trans hq)).2.symm
        emptying := fun q u hq => absurd (hcell.symm.trans hq) (by simp)
        free := fun q hq => absurd (hcell.symm.trans hq) (by simp)
        full := fun q hq => absurd (hcell.symm.trans hq) (by simp) }
  · rw [hpc]
    rintro p ⟨⟩
    rfl
  · rintro p u ⟨⟩

/-- **An item is taken.** -/
theorem Told.take (h : s.Told cell) {pos : ℕ} (hpc : s.pcs t = .take pos)
    (hpos : s.dequeuePos = pos) : Sound { s.goto t (.read pos) with dequeuePos := pos + 1 } := by
  have hcell : cell (s.index pos) = .full pos := by
    have hfits := h.fits t
    rw [hpc] at hfits
    exact hfits.resolve_left (by omega)
  have hholds := h.holds _ (h.index_lt pos)
  rw [hcell] at hholds
  obtain ⟨-, hlt, hnext, item, hitem, hlog⟩ := hholds
  refine ⟨Function.update cell (s.index pos) (.emptying pos t), ?_⟩
  change (({ s with dequeuePos := pos + 1 } : TicketRing T R).goto t (.read pos)).Told _
  refine h.turn ?_ ?_ rfl ?_ ?_
  · exact
      { touches :=
          { capacity := rfl, sequence := fun _ _ => rfl, storage := fun _ _ => rfl
            enqueuePos := le_rfl
            dequeuePos := by dsimp only; omega
            given := fun p hle hlt => absurd hle (Nat.not_le_of_lt hlt)
            taken := fun p hle hlt => congrArg s.index (by dsimp only at hlt; omega)
            log := fun _ _ hx => hx }
        lt := h.index_lt pos
        length := h.length
        le := hlt
        slot := rfl
        sequence := (h.sequence _ (h.index_lt pos)).trans (by rw [hcell]; rfl)
        holds := ⟨Nat.lt_succ_self _, hnext⟩
        stands := fun p hle hlt hindex => by
          have hstands := h.stands p (by dsimp only at hle; omega) hlt
          rw [hindex, hcell] at hstands
          obtain rfl : pos = p := hstands
          exact absurd hle (Nat.not_succ_le_self _)
        filling := fun q u hq => absurd (hcell.symm.trans hq) (by simp)
        emptying := fun q u hq => absurd (hcell.symm.trans hq) (by simp)
        free := fun q hq => absurd (hcell.symm.trans hq) (by simp)
        full := fun q hq => by
          obtain rfl := Cell.full.inj (hcell.symm.trans hq)
          exact Nat.lt_succ_self _ }
  · exact ⟨Function.update_self .., item, hitem, hlog⟩
  · rw [hpc]
    rintro p ⟨⟩
  · rintro p u ⟨⟩

/-- The item is read, and gone from its slot: it is the one of the ticket. -/
theorem Told.read (h : s.Told cell) {item : R} {pos : ℕ} (hpc : s.pcs t = .read pos)
    (hitem : s.storage (s.index pos) = some item) :
    Sound ((s.store pos none).goto t (.release item pos)) := by
  have hfits := h.fits t
  rw [hpc] at hfits
  obtain ⟨hcell, item', hitem', hlog⟩ := hfits
  obtain rfl := Option.some.inj (hitem.symm.trans hitem')
  have hholds := h.holds _ (h.index_lt pos)
  rw [hcell] at hholds
  refine ⟨_, h.turn (c := .emptying pos t) (i := s.index pos) ?_ ?_ rfl ?_ ?_⟩
  · exact
      { touches := touches_store ..
        lt := h.index_lt pos
        length := h.length
        le := h.le
        slot := rfl
        sequence := (h.sequence _ (h.index_lt pos)).trans (by rw [hcell])
        holds := hholds
        stands := fun p hle hlt hindex => by
          have hstands := h.stands p hle hlt
          rw [hindex, hcell] at hstands
          exact hstands
        filling := fun q u hq => absurd (hcell.symm.trans hq) (by simp)
        emptying := fun q u hq => (Cell.emptying.inj (hcell.symm.trans hq)).2.symm
        free := fun q hq => absurd (hcell.symm.trans hq) (by simp)
        full := fun q hq => absurd (hcell.symm.trans hq) (by simp) }
  · exact ⟨Function.update_self .., hlog, Function.update_self ..⟩
  · rw [hpc]
    rintro p ⟨⟩
  · rintro p u ⟨⟩

/-- The slot is numbered for the next round: it is free. -/
theorem Told.release (h : s.Told cell) {item : R} {pos : ℕ} (hpc : s.pcs t = .release item pos) :
    Sound ((s.number pos (pos + s.capacity)).goto t (.dequeued (some item))) := by
  have hfits := h.fits t
  rw [hpc] at hfits
  obtain ⟨hcell, -, hempty⟩ := hfits
  have hholds := h.holds _ (h.index_lt pos)
  rw [hcell] at hholds
  refine ⟨Function.update cell (s.index pos) (.free (pos + s.capacity)),
    h.turn ?_ trivial rfl ?_ ?_⟩
  · exact
      { touches := touches_number ..
        lt := h.index_lt pos
        length := h.length
        le := h.le
        slot := s.index_add_capacity pos
        sequence := Function.update_self ..
        holds := ⟨hholds.2, hempty⟩
        stands := fun p hle hlt hindex => by
          have hstands := h.stands p hle hlt
          rw [hindex, hcell] at hstands
          exact hstands.elim
        filling := fun q u hq => absurd (hcell.symm.trans hq) (by simp)
        emptying := fun q u hq => (Cell.emptying.inj (hcell.symm.trans hq)).2.symm
        free := fun q hq => absurd (hcell.symm.trans hq) (by simp)
        full := fun q hq => absurd (hcell.symm.trans hq) (by simp) }
  · rw [hpc]
    rintro p ⟨⟩
  · rintro p u ⟨⟩

/-- **Every step keeps the invariant.** -/
theorem Sound.step (h : s.Sound) {a : RingLabel T R} (hstep : s.step a = some s') : s'.Sound := by
  obtain ⟨cell, h⟩ := h
  cases a with
  | enqueue t item =>
    obtain ⟨hout, rfl⟩ := guarded hstep
    have hpc := RingPc.eq_out hout
    exact ⟨cell, h.goto (by simp [RingPc.fills?, *]) trivial⟩
  | dequeue t =>
    obtain ⟨hout, rfl⟩ := guarded hstep
    have hpc := RingPc.eq_out hout
    exact ⟨cell, h.goto (by simp [RingPc.fills?, *]) trivial⟩
  | leave t =>
    rw [TicketRing.step] at hstep
    split at hstep
    · obtain ⟨⟩ := hstep
      exact ⟨cell, h.goto (by simp [RingPc.fills?, *]) trivial⟩
    · obtain ⟨⟩ := hstep
      exact ⟨cell, h.goto (by simp [RingPc.fills?, *]) trivial⟩
    · cases hstep
  | step t spurious =>
    rw [TicketRing.step, stepThread] at hstep
    split at hstep
    · obtain ⟨⟩ := hstep
      exact ⟨cell, h.goto (by simp [RingPc.fills?, *]) (le_refl s.enqueuePos)⟩
    · obtain ⟨⟩ := hstep
      refine ⟨cell, h.goto (by simp [RingPc.fills?, *]) ?_⟩
      split_ifs with hseq
      · exact h.at_ticket hseq
      · trivial
      · trivial
    · next item pos hpc =>
      split_ifs at hstep with hclaim
      · obtain ⟨⟩ := hstep
        exact h.claim hpc hclaim.1
      · obtain ⟨⟩ := hstep
        exact ⟨cell, h.goto (by simp [RingPc.fills?, *]) (le_refl s.enqueuePos)⟩
    · next item pos hpc =>
      obtain ⟨⟩ := hstep
      exact h.write hpc
    · next item pos hpc =>
      obtain ⟨⟩ := hstep
      exact h.publish hpc
    · obtain ⟨⟩ := hstep
      exact ⟨cell, h.goto (by simp [RingPc.fills?, *]) trivial⟩
    · obtain ⟨⟩ := hstep
      refine ⟨cell, h.goto (by simp [RingPc.fills?, *]) ?_⟩
      split_ifs with hseq
      · exact h.at_full hseq
      · trivial
      · trivial
    · next pos hpc =>
      split_ifs at hstep with htake
      · obtain ⟨⟩ := hstep
        exact h.take hpc htake.1
      · obtain ⟨⟩ := hstep
        exact ⟨cell, h.goto (by simp [RingPc.fills?, *]) trivial⟩
    · next pos hpc =>
      obtain ⟨item, hitem, rfl⟩ := Option.map_eq_some_iff.mp hstep
      exact h.read hpc hitem
    · next item pos hpc =>
      obtain ⟨⟩ := hstep
      exact h.release hpc
    · cases hstep

end Steps

/-- An empty queue is sound. -/
theorem sound_empty {n : ℕ} (hn : 2 ≤ n) : ({ capacity := n } : TicketRing T R).Sound := by
  refine ⟨Cell.free, hn, rfl, le_rfl, fun i hi => ?_, fun i _ => rfl, fun i _ => ?_,
    fun p _ hlt => absurd hlt (Nat.not_lt_zero p), fun _ => trivial, fun i _ p t h => ?_⟩
  · exact Nat.mod_eq_of_lt hi
  · exact ⟨Nat.zero_le i, rfl⟩
  · cases h

/-! ## What the invariant says -/

theorem Sound.length (h : s.Sound) : s.log.length = s.enqueuePos := by
  obtain ⟨cell, h⟩ := h
  exact h.length

theorem Sound.le (h : s.Sound) : s.dequeuePos ≤ s.enqueuePos := by
  obtain ⟨cell, h⟩ := h
  exact h.le

/-- **What is read is the item of the ticket**: it is there. -/
theorem Sound.read (h : s.Sound) {pos : ℕ} (hpc : s.pcs t = .read pos) :
    ∃ item, s.storage (s.index pos) = some item ∧ s.log[pos]? = some item := by
  obtain ⟨cell, h⟩ := h
  have hfits := h.fits t
  rw [hpc] at hfits
  exact hfits.2

theorem Sound.release (h : s.Sound) {item : R} {pos : ℕ} (hpc : s.pcs t = .release item pos) :
    s.log[pos]? = some item := by
  obtain ⟨cell, h⟩ := h
  have hfits := h.fits t
  rw [hpc] at hfits
  exact hfits.2.1

/-- **What is written is written to an empty slot**, the one of the ticket. -/
theorem Sound.write (h : s.Sound) {item : R} {pos : ℕ} (hpc : s.pcs t = .write item pos) :
    s.storage (s.index pos) = none ∧ s.log[pos]? = some item := by
  obtain ⟨cell, h⟩ := h
  have hfits := h.fits t
  rw [hpc] at hfits
  exact ⟨hfits.2.2, hfits.2.1⟩

/-- What is read has been published. -/
theorem Sound.read_published (h : s.Sound) {pos : ℕ} (hpc : s.pcs t = .read pos) :
    s.sequence (s.index pos) = pos + 1 := by
  obtain ⟨cell, h⟩ := h
  have hfits := h.fits t
  rw [hpc] at hfits
  rw [h.sequence _ (h.index_lt pos), hfits.1]
  rfl

theorem Sound.publish (h : s.Sound) {item : R} {pos : ℕ} (hpc : s.pcs t = .publish item pos) :
    s.log[pos]? = some item := by
  obtain ⟨cell, h⟩ := h
  have hfits := h.fits t
  rw [hpc] at hfits
  exact hfits.2.1

/-- The position is taken by an item that is being written, stands there, or is being read. -/
def Occupied (s : TicketRing T R) (pos : ℕ) : Prop :=
  pos < s.enqueuePos ∧ (s.sequence (s.index pos) = pos ∨ s.sequence (s.index pos) = pos + 1)

instance (pos : ℕ) : Decidable (s.Occupied pos) := inferInstanceAs (Decidable (_ ∧ _))

/-- **A refusal**: the slot of the next position is still occupied, from one round before. -/
theorem Sound.refused (h : s.Sound) {item : R} {pos : ℕ} (hpc : s.pcs t = .probe item pos)
    (hseq : s.sequence (s.index pos) < pos) :
    pos = s.enqueuePos ∧ ∃ q, q + s.capacity = s.enqueuePos ∧ s.Occupied q := by
  obtain ⟨cell, h⟩ := h
  have hle := h.fits t
  rw [hpc] at hle
  have hle : pos ≤ s.enqueuePos := hle
  have hlt := h.index_lt pos
  have hsequence := h.sequence _ hlt
  have hslot := h.slot _ hlt
  have hholds := h.holds _ hlt
  rw [hsequence] at hseq
  -- the ticket in the slot is one of an earlier round, and no later than one round before
  have hround (q : ℕ) (hq : s.index q = s.index pos) (hqpos : q < pos)
      (hnext : s.enqueuePos ≤ q + s.capacity) (hnum : (cell (s.index pos)).sequence = q ∨
        (cell (s.index pos)).sequence = q + 1) :
      pos = s.enqueuePos ∧ ∃ q, q + s.capacity = s.enqueuePos ∧ s.Occupied q := by
    have hdvd := (Nat.modEq_iff_dvd' hqpos.le).mp hq
    have hcap := Nat.le_of_dvd (Nat.sub_pos_of_lt hqpos) hdvd
    refine ⟨by omega, q, by omega, by omega, ?_⟩
    rw [hq, hsequence]
    exact hnum
  cases hc : cell (s.index pos) with
  | free q =>
    rw [hc] at hholds hseq
    have hq : s.enqueuePos ≤ q := hholds.1
    have hqpos : q < pos := hseq
    omega
  | filling q u =>
    rw [hc] at hholds hseq hslot
    exact hround q hslot hseq hholds.2.2 (.inl (by rw [hc]; rfl))
  | full q =>
    rw [hc] at hholds hseq hslot
    exact hround q hslot (Nat.lt_of_succ_lt hseq) hholds.2.2.1 (.inr (by rw [hc]; rfl))
  | emptying q u =>
    rw [hc] at hholds hseq hslot
    exact hround q hslot (Nat.lt_of_succ_lt hseq) hholds.2 (.inr (by rw [hc]; rfl))

theorem Told.filling_of_fills (h : s.Told cell) {pos : ℕ} (ht : (s.pcs t).fills? = some pos) :
    cell (s.index pos) = .filling pos t := by
  have hfits := h.fits t
  cases hpc : s.pcs t with
  | write item p =>
    rw [hpc] at ht hfits
    obtain ⟨⟩ := ht
    exact hfits.1
  | publish item p =>
    rw [hpc] at ht hfits
    obtain ⟨⟩ := ht
    exact hfits.1
  | _ =>
    rw [hpc] at ht
    cases ht

/-- One thread fills a slot. -/
theorem Sound.fills_unique (h : s.Sound) {pos : ℕ} (ht : (s.pcs t).fills? = some pos)
    (hu : (s.pcs u).fills? = some pos) : t = u := by
  obtain ⟨cell, h⟩ := h
  exact (Cell.filling.inj ((h.filling_of_fills ht).symm.trans (h.filling_of_fills hu))).2

/-- **What nobody is filling stands in its slot**, until it is taken. -/
theorem Sound.stands (h : s.Sound) {pos : ℕ} (hle : s.dequeuePos ≤ pos) (hlt : pos < s.enqueuePos)
    (hnone : ∀ t, (s.pcs t).fills? ≠ some pos) :
    ∃ item, s.storage (s.index pos) = some item ∧ s.log[pos]? = some item := by
  obtain ⟨cell, h⟩ := h
  have hslot := h.index_lt pos
  have hstands := h.stands pos hle hlt
  have hholds := h.holds _ hslot
  cases hc : cell (s.index pos) with
  | free q => exact absurd hstands (by simp [hc, Stands])
  | emptying q u => exact absurd hstands (by simp [hc, Stands])
  | filling q u =>
    rw [hc] at hstands
    obtain rfl : q = pos := hstands
    exact absurd (h.filler _ hslot q u hc) (hnone u)
  | full q =>
    rw [hc] at hstands hholds
    obtain rfl : q = pos := hstands
    exact hholds.2.2.2

/-- **No more items are held** than there are slots. -/
theorem Sound.held_le (h : s.Sound) : s.enqueuePos ≤ s.dequeuePos + s.capacity := by
  obtain ⟨cell, h⟩ := h
  refine Nat.le_of_not_lt fun hlt => ?_
  have hcap := h.capacity
  have hfirst := h.stands s.dequeuePos le_rfl (by omega)
  have hsecond := h.stands (s.dequeuePos + s.capacity) (Nat.le_add_right ..) hlt
  rw [index_add_capacity] at hsecond
  cases hc : cell (s.index s.dequeuePos) with
  | free q => exact absurd hfirst (by simp [hc, Stands])
  | emptying q u => exact absurd hfirst (by simp [hc, Stands])
  | filling q u =>
    simp only [hc, Stands] at hfirst hsecond
    omega
  | full q =>
    simp only [hc, Stands] at hfirst hsecond
    omega

/-- **An empty answer**: where nobody fills a slot, the slot of the next dequeue is full, or nothing
is in the queue. -/
theorem Sound.empty (h : s.Sound) (hnone : ∀ t, (s.pcs t).fills? = none)
    (hseq : s.sequence (s.index s.dequeuePos) < s.dequeuePos + 1) :
    s.dequeuePos = s.enqueuePos := by
  obtain ⟨cell, h⟩ := h
  refine h.le.antisymm (Nat.le_of_not_lt fun hlt => ?_)
  have hslot := h.index_lt s.dequeuePos
  have hstands := h.stands _ le_rfl hlt
  have hcell := h.sequence _ hslot
  cases hc : cell (s.index s.dequeuePos) with
  | free q => exact absurd hstands (by simp [hc, Stands])
  | emptying q u => exact absurd hstands (by simp [hc, Stands])
  | filling q u =>
    have hfills := h.filler _ hslot q u hc
    rw [hnone u] at hfills
    cases hfills
  | full q =>
    rw [hc] at hstands hcell
    obtain rfl : q = s.dequeuePos := hstands
    rw [hcell] at hseq
    exact absurd hseq (Nat.lt_irrefl _)

/-! ## One consumer

If no dequeue begins while another goes on, the items come out in the order of the log. -/

/-- What the place of the only consumer says. -/
def Follows (s : TicketRing T R) : RingPc R → Prop
  | .inspect pos => pos = s.dequeuePos
  | .take pos => pos = s.dequeuePos
  | .read pos => pos + 1 = s.dequeuePos
  | .release _ pos => pos + 1 = s.dequeuePos
  | .dequeued (some item) => ∃ pos, pos + 1 = s.dequeuePos ∧ s.log[pos]? = some item
  | _ => True

structure OneConsumer (s : TicketRing T R) : Prop where
  one : ∀ t u, (s.pcs t).consumes = true → (s.pcs u).consumes = true → t = u
  follows : ∀ t, s.Follows (s.pcs t)

/-- A place outside every dequeue says nothing. -/
theorem follows_of_not_consumes (h : pc.consumes = false) : s.Follows pc := by
  cases pc <;> first | trivial | exact absurd h (by simp [RingPc.consumes])

/-- What a place says stays so while nothing is taken. -/
theorem Follows.mono {s' : TicketRing T R} (hpos : s'.dequeuePos = s.dequeuePos)
    (hlog : ∀ (p : ℕ) (item : R), s.log[p]? = some item → s'.log[p]? = some item)
    (h : s.Follows pc) : s'.Follows pc := by
  cases pc with
  | inspect pos => exact Eq.trans h hpos.symm
  | take pos => exact Eq.trans h hpos.symm
  | read pos => exact Eq.trans h hpos.symm
  | release item pos => exact Eq.trans h hpos.symm
  | dequeued item =>
    cases item with
    | none => trivial
    | some item =>
      obtain ⟨pos, hpred, hitem⟩ := h
      exact ⟨pos, hpred.trans hpos.symm, hlog pos item hitem⟩
  | _ => trivial

section Steps

variable [DecidableEq T] {s' : TicketRing T R}

/-- The consumer goes on. -/
theorem OneConsumer.consumer (h : s.OneConsumer) (ht : (s.pcs t).consumes = true)
    (hpcs : s'.pcs = Function.update s.pcs t pc) (hpc : s'.Follows pc) : s'.OneConsumer := by
  have hother (u : T) (hut : u ≠ t) : (s'.pcs u).consumes = false := by
    rw [hpcs, Function.update_of_ne hut, Bool.eq_false_iff]
    exact fun hu => hut (h.one u t hu ht)
  constructor
  · intro u v hu hv
    have hut : u = t := by_contra fun hne => by simp [hother u hne] at hu
    have hvt : v = t := by_contra fun hne => by simp [hother v hne] at hv
    rw [hut, hvt]
  · intro u
    by_cases hut : u = t
    · subst hut
      rw [hpcs, Function.update_self]
      exact hpc
    · exact follows_of_not_consumes (hother u hut)

/-- Another thread goes on, outside every dequeue. -/
theorem OneConsumer.other (h : s.OneConsumer) (hpcs : s'.pcs = Function.update s.pcs t pc)
    (hpc : pc.consumes = false) (hpos : s'.dequeuePos = s.dequeuePos)
    (hlog : ∀ (p : ℕ) (item : R), s.log[p]? = some item → s'.log[p]? = some item) :
    s'.OneConsumer := by
  have hthread (u : T) (hu : (s'.pcs u).consumes = true) : s'.pcs u = s.pcs u := by
    rw [hpcs] at hu ⊢
    by_cases hut : u = t
    · subst hut
      rw [Function.update_self, hpc] at hu
      cases hu
    · exact Function.update_of_ne hut ..
  constructor
  · intro u v hu hv
    exact h.one u v (hthread u hu ▸ hu) (hthread v hv ▸ hv)
  · intro u
    cases hu : (s'.pcs u).consumes with
    | false => exact follows_of_not_consumes hu
    | true =>
      rw [hthread u hu]
      exact (h.follows u).mono hpos hlog

/-- A first dequeue begins. -/
theorem OneConsumer.begins (hnone : ∀ u, (s.pcs u).consumes = false) :
    (s.goto t .dequeue).OneConsumer := by
  have hother (u : T) (hut : u ≠ t) : ((s.goto t .dequeue).pcs u).consumes = false :=
    (congrArg RingPc.consumes (Function.update_of_ne hut ..)).trans (hnone u)
  constructor
  · intro u v hu hv
    have hut : u = t := by_contra fun hne => by simp [hother u hne] at hu
    have hvt : v = t := by_contra fun hne => by simp [hother v hne] at hv
    rw [hut, hvt]
  · intro u
    by_cases hut : u = t
    · subst hut
      change Follows _ (Function.update s.pcs u .dequeue u)
      rw [Function.update_self]
      trivial
    · exact follows_of_not_consumes (hother u hut)

/-- **Every step keeps one consumer**, if a dequeue begins only when no other goes on. -/
theorem OneConsumer.step (hs : s.Sound) (h : s.OneConsumer) {a : RingLabel T R}
    (hbegin : ∀ t, a = .dequeue t → ∀ u, (s.pcs u).consumes = false)
    (hstep : s.step a = some s') : s'.OneConsumer := by
  cases a with
  | enqueue t item =>
    obtain ⟨-, rfl⟩ := guarded hstep
    exact h.other rfl rfl rfl fun _ _ hx => hx
  | dequeue t =>
    obtain ⟨-, rfl⟩ := guarded hstep
    exact .begins (hbegin t rfl)
  | leave t =>
    rw [TicketRing.step] at hstep
    split at hstep
    · obtain ⟨⟩ := hstep
      exact h.other rfl rfl rfl fun _ _ hx => hx
    · obtain ⟨⟩ := hstep
      exact h.other rfl rfl rfl fun _ _ hx => hx
    · cases hstep
  | step t spurious =>
    rw [TicketRing.step, stepThread] at hstep
    split at hstep
    · obtain ⟨⟩ := hstep
      exact h.other rfl rfl rfl fun _ _ hx => hx
    · obtain ⟨⟩ := hstep
      refine h.other rfl ?_ rfl fun _ _ hx => hx
      split_ifs <;> rfl
    · split_ifs at hstep
      · obtain ⟨⟩ := hstep
        exact h.other rfl rfl rfl fun p x hx =>
          (List.getElem?_append_left (List.getElem?_eq_some_iff.mp hx).1).trans hx
      · obtain ⟨⟩ := hstep
        exact h.other rfl rfl rfl fun _ _ hx => hx
    · obtain ⟨⟩ := hstep
      exact h.other rfl rfl rfl fun _ _ hx => hx
    · obtain ⟨⟩ := hstep
      exact h.other rfl rfl rfl fun _ _ hx => hx
    · next hpc =>
      obtain ⟨⟩ := hstep
      exact h.consumer (by rw [hpc]; rfl) rfl rfl
    · next pos hpc =>
      obtain ⟨⟩ := hstep
      have hfollows := h.follows t
      rw [hpc] at hfollows
      refine h.consumer (by rw [hpc]; rfl) rfl ?_
      split_ifs
      · exact hfollows
      · trivial
      · trivial
    · next pos hpc =>
      split_ifs at hstep with htake
      · obtain ⟨⟩ := hstep
        exact h.consumer (by rw [hpc]; rfl) rfl rfl
      · obtain ⟨⟩ := hstep
        exact h.consumer (by rw [hpc]; rfl) rfl rfl
    · next pos hpc =>
      obtain ⟨item, hitem, rfl⟩ := Option.map_eq_some_iff.mp hstep
      have hfollows := h.follows t
      rw [hpc] at hfollows
      exact h.consumer (by rw [hpc]; rfl) rfl hfollows
    · next item pos hpc =>
      obtain ⟨⟩ := hstep
      have hfollows := h.follows t
      rw [hpc] at hfollows
      exact h.consumer (by rw [hpc]; rfl) rfl ⟨pos, hfollows, hs.release hpc⟩
    · cases hstep

end Steps

end TicketRing

end Machinery
