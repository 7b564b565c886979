import AxonVex.Core.ThreadSafeQueue
import AxonVex.Machinery.SlidingWindow

/-!
# Core/QueueTransfers — elements whose transfer throws

    enqueue:  claim pos;  new (slot) T(item);  slot pos ← pos + 1
    dequeue:  claim pos;  T result = move(slot);  slot pos ← pos + capacity;  return result

Both calls claim a position before the element is transferred, and number the slot after it.  An
exception between the two is caught, and the claim stays: no `dequeue` gets past a position that was
claimed and not filled, and no `enqueue` past a slot that was claimed and not emptied.  The last
transfer, into the returned `optional`, comes when the item has left the queue, and is lost with it.
So a queue serves its callers exactly as long as no transfer throws (`transfers_contained_iff`).

The calls come one after the other here; nobody else moves a position between its load and its
exchange.
-/

namespace AxonVex

open Machinery

/-- `QueueStatistics`. -/
structure QueueStatistics where
  enqueue_count : ℕ := 0
  dequeue_count : ℕ := 0
  enqueue_failures : ℕ := 0
  dequeue_failures : ℕ := 0
  max_size_reached : ℕ := 0
  deriving DecidableEq, Repr

/-- `ThreadSafeQueue<R>`, as its calls find it one after the other. -/
structure SerialQueue (R : Type*) where
  capacity : QueueCapacity
  enqueue_pos_ : ℕ := 0
  dequeue_pos_ : ℕ := 0
  /-- `slots_[i].sequence` -/
  sequence : ℕ → ℕ := id
  /-- the object in `slots_[i].storage`, if one was constructed -/
  storage : ℕ → Option R := fun _ => none
  stats_ : QueueStatistics := {}

namespace SerialQueue

variable {R : Type*} (s : SerialQueue R)

/-- `pos & capacity_mask_`. -/
def index (pos : ℕ) : ℕ := pos &&& (s.capacity.capacity_ - 1)

/-- `enqueue(item)`, by copy or by move; `throws` is the transfer of the item.  `none` is a loop
that reloads the same position for ever. -/
def enqueue (item : R) (throws : Bool) : Option (SerialQueue R × Bool) :=
  let pos := s.enqueue_pos_
  let slot := s.index pos
  if s.sequence slot = pos then
    if throws then
      some ({ s with
        enqueue_pos_ := pos + 1
        stats_.enqueue_failures := s.stats_.enqueue_failures + 1 }, false)
    else
      some ({ s with
        enqueue_pos_ := pos + 1
        storage := Function.update s.storage slot (some item)
        sequence := Function.update s.sequence slot (pos + 1)
        stats_.enqueue_count := s.stats_.enqueue_count + 1 }, true)
  else if s.sequence slot < pos then
    some ({ s with
      stats_.enqueue_failures := s.stats_.enqueue_failures + 1
      stats_.max_size_reached := s.stats_.max_size_reached + 1 }, false)
  else none

/-- `dequeue()`; `readThrows` is the transfer out of the slot, `returnThrows` that into the returned
`optional`.  `none` is a loop that does not end, or a slot without an object. -/
def dequeue (readThrows returnThrows : Bool) : Option (SerialQueue R × Option R) :=
  let pos := s.dequeue_pos_
  let slot := s.index pos
  if s.sequence slot = pos + 1 then
    (s.storage slot).map fun item =>
      if readThrows then
        ({ s with
          dequeue_pos_ := pos + 1
          stats_.dequeue_failures := s.stats_.dequeue_failures + 1 }, none)
      else if returnThrows then
        ({ s with
          dequeue_pos_ := pos + 1
          storage := Function.update s.storage slot none
          sequence := Function.update s.sequence slot (pos + s.capacity.capacity_)
          stats_.dequeue_count := s.stats_.dequeue_count + 1
          stats_.dequeue_failures := s.stats_.dequeue_failures + 1 }, none)
      else
        ({ s with
          dequeue_pos_ := pos + 1
          storage := Function.update s.storage slot none
          sequence := Function.update s.sequence slot (pos + s.capacity.capacity_)
          stats_.dequeue_count := s.stats_.dequeue_count + 1 }, some item)
  else if s.sequence slot < pos + 1 then
    some ({ s with stats_.dequeue_failures := s.stats_.dequeue_failures + 1 }, none)
  else none

/-- A call, and which of its transfers would throw. -/
inductive Call (R : Type*)
  | enqueue (item : R) (throws : Bool)
  | dequeue (readThrows returnThrows : Bool)
  deriving DecidableEq, Repr

/-- What a call returns. -/
inductive Answer (R : Type*)
  | enqueued (accepted : Bool)
  | dequeued (item : Option R)
  deriving DecidableEq, Repr

/-- One call. -/
def call : Call R → Option (SerialQueue R × Answer R)
  | .enqueue item throws => (s.enqueue item throws).map fun r => (r.1, .enqueued r.2)
  | .dequeue readThrows returnThrows =>
    (s.dequeue readThrows returnThrows).map fun r => (r.1, .dequeued r.2)

/-- What the calls return, one after the other. -/
def answers (s : SerialQueue R) : List (Call R) → Option (List (Answer R))
  | [] => some []
  | a :: as => (s.call a).bind fun r => (answers r.1 as).map (r.2 :: ·)

/-! ## What the calls are to do -/

/-- A bounded queue that holds these items: what a call leaves in it, and returns.  A transfer that
throws changes nothing. -/
def fifo (capacity : ℕ) (held : List R) : Call R → List R × Answer R
  | .enqueue item throws =>
    if held.length < capacity ∧ throws = false then (held ++ [item], .enqueued true)
    else (held, .enqueued false)
  | .dequeue readThrows returnThrows =>
    match held with
    | [] => ([], .dequeued none)
    | x :: rest =>
      if readThrows || returnThrows then (x :: rest, .dequeued none) else (rest, .dequeued (some x))

/-- What the calls are to return. -/
def fifoAnswers (capacity : ℕ) (held : List R) : List (Call R) → List (Answer R)
  | [] => []
  | a :: as => (fifo capacity held a).2 :: fifoAnswers capacity (fifo capacity held a).1 as

/-- No transfer of the call would throw. -/
def Call.quiet : Call R → Bool
  | enqueue _ throws => !throws
  | dequeue readThrows returnThrows => !readThrows && !returnThrows

/-- **The queue is usable and holds these items**: whatever is called from here on without a throw
is answered as by a bounded queue with these items. -/
def Usable (s : SerialQueue R) (held : List R) : Prop :=
  ∀ calls : List (Call R), (∀ a ∈ calls, a.quiet = true) →
    s.answers calls = some (fifoAnswers s.capacity.capacity_ held calls)

/-- The run so far. -/
structure History (R : Type*) where
  /-- what a bounded queue would hold -/
  held : List R := []
  answers : List (Answer R) := []
  /-- what a bounded queue would have returned -/
  expected : List (Answer R) := []

/-- What a call adds to the run. -/
def record (s : SerialQueue R) (a : Call R) (_ : SerialQueue R) (h : History R) : History R where
  held := (fifo s.capacity.capacity_ h.held a).1
  answers := h.answers ++ ((s.call a).map Prod.snd).toList
  expected := h.expected ++ [(fifo s.capacity.capacity_ h.held a).2]

/-- The queue of this capacity, from its construction on, with the run so far. -/
def queue (R : Type*) (c : QueueCapacity) : Machine (SerialQueue R × History R) (Call R) :=
  Machine.withHistory
    { init := fun s => s = { capacity := c }, step := fun s a => (s.call a).map Prod.fst } {} record

/-- **The calls were answered as by a bounded queue, and will be.** -/
def Serves (p : SerialQueue R × History R) : Prop :=
  p.2.answers = p.2.expected ∧ p.1.Usable p.2.held

/-- No transfer throws: the call has none that would, or makes none because the queue is full or
empty. -/
def Unthrown (p : SerialQueue R × History R) : Call R → Prop
  | .enqueue _ throws => throws = true → p.2.held.length = p.1.capacity.capacity_
  | .dequeue readThrows returnThrows => (readThrows || returnThrows) = true → p.2.held = []

/-! ## The slots of a queue without a throw -/

variable {s s' : SerialQueue R} {held rest : List R} {x item : R} {a : Call R} {b : Bool}

theorem index_eq (s : SerialQueue R) (pos : ℕ) : s.index pos = pos % s.capacity.capacity_ :=
  s.capacity.and_mask pos

/-- Positions of one round have different slots. -/
theorem index_ne {j k : ℕ} (hjk : j < k) (hk : k < j + s.capacity.capacity_) (pos : ℕ) :
    s.index (pos + j) ≠ s.index (pos + k) := by
  rw [index_eq, index_eq]
  exact SlidingWindow.mod_ne_of_lt (by omega) (by omega)

/-- The positions that stand in the slots: those of the items are full, the others free. -/
structure Sound (s : SerialQueue R) (held : List R) : Prop where
  ends : s.enqueue_pos_ = s.dequeue_pos_ + held.length
  le : held.length ≤ s.capacity.capacity_
  full : ∀ k < held.length, s.sequence (s.index (s.dequeue_pos_ + k)) = s.dequeue_pos_ + k + 1 ∧
    s.storage (s.index (s.dequeue_pos_ + k)) = held[k]?
  free : ∀ k, held.length ≤ k → k < s.capacity.capacity_ →
    s.sequence (s.index (s.dequeue_pos_ + k)) = s.dequeue_pos_ + k

theorem sound_construct (c : QueueCapacity) : Sound ({ capacity := c } : SerialQueue R) [] where
  ends := rfl
  le := Nat.zero_le _
  full k hk := absurd hk (Nat.not_lt_zero k)
  free k _ hk := by
    rw [index_eq, Nat.zero_add]
    exact Nat.mod_eq_of_lt hk

/-- The number of the next slot to fill. -/
theorem Sound.next (h : Sound s held) (hlt : held.length < s.capacity.capacity_) :
    s.sequence (s.index s.enqueue_pos_) = s.enqueue_pos_ := by
  rw [h.ends]
  exact h.free _ le_rfl hlt

/-- The slot of the next position is that of the oldest item. -/
theorem Sound.last (h : Sound s held) (heq : held.length = s.capacity.capacity_) :
    s.sequence (s.index s.enqueue_pos_) = s.dequeue_pos_ + 1 := by
  have hround : s.index s.enqueue_pos_ = s.index s.dequeue_pos_ := by
    rw [index_eq, index_eq, h.ends, heq, Nat.add_mod_right]
  have htwo := s.capacity.two_le
  rw [hround]
  exact (h.full 0 (by omega)).1

/-- **An item is taken in.** -/
theorem Sound.enqueue (h : Sound s held) (hlt : held.length < s.capacity.capacity_) (item : R) :
    ∃ s', s.enqueue item false = some (s', true) ∧ Sound s' (held ++ [item]) := by
  refine ⟨_, by rw [SerialQueue.enqueue, if_pos (h.next hlt)]; rfl, ?_⟩
  have hlength : (held ++ [item]).length = held.length + 1 := by simp
  -- the slot that is filled is none of the others of this round
  have hother (k : ℕ) (hk : k ≠ held.length) (hcap : k < s.capacity.capacity_) :
      s.index (s.dequeue_pos_ + k) ≠ s.index s.enqueue_pos_ := by
    rw [h.ends]
    rcases Nat.lt_or_gt_of_ne hk with hbelow | habove
    · exact index_ne hbelow (by omega) _
    · exact (index_ne habove (by omega) _).symm
  constructor
  · rw [hlength, ← Nat.add_assoc, ← h.ends]
  · rw [hlength]
    exact hlt
  · intro k hk
    change Function.update s.sequence _ _ (s.index _) = _ ∧
      Function.update s.storage _ _ (s.index _) = _
    rw [hlength] at hk
    rcases Nat.lt_succ_iff_lt_or_eq.mp hk with hbelow | rfl
    · have hne := hother k (by omega) (by omega)
      rw [Function.update_of_ne hne, Function.update_of_ne hne,
        List.getElem?_append_left hbelow]
      exact h.full k hbelow
    · change Function.update s.sequence _ _ (s.index (s.dequeue_pos_ + held.length)) = _ ∧ _
      rw [← h.ends, Function.update_self, Function.update_self, List.getElem?_concat_length]
      exact ⟨rfl, rfl⟩
  · intro k hk hcap
    rw [hlength] at hk
    change Function.update s.sequence _ _ (s.index _) = _
    rw [Function.update_of_ne (hother k (by omega) hcap)]
    exact h.free k (by omega) hcap

/-- **A full queue refuses**, and nothing is transferred. -/
theorem Sound.refuse (h : Sound s held) (heq : held.length = s.capacity.capacity_) (item : R)
    (throws : Bool) : ∃ s', s.enqueue item throws = some (s', false) ∧ Sound s' held := by
  have hlast := h.last heq
  have htwo := s.capacity.two_le
  have hends := h.ends
  refine ⟨_, by rw [SerialQueue.enqueue, if_neg (by omega), if_pos (by omega)], ?_⟩
  exact ⟨h.ends, h.le, h.full, h.free⟩

/-- **The oldest item comes out.** -/
theorem Sound.dequeue (h : Sound s (x :: rest)) :
    ∃ s', s.dequeue false false = some (s', some x) ∧ Sound s' rest := by
  obtain ⟨hsequence, hstorage⟩ := h.full 0 (Nat.zero_lt_succ _)
  rw [Nat.add_zero] at hsequence hstorage
  refine ⟨_, by rw [SerialQueue.dequeue, if_pos hsequence, hstorage]; rfl, ?_⟩
  have hle := h.le
  have hends := h.ends
  rw [List.length_cons] at hle hends
  -- the slot that is emptied is that of the position one round ahead
  have hround : s.index (s.dequeue_pos_ + s.capacity.capacity_) = s.index s.dequeue_pos_ := by
    rw [index_eq, index_eq, Nat.add_mod_right]
  have hother (k : ℕ) (hk : k + 1 < s.capacity.capacity_) :
      s.index (s.dequeue_pos_ + (k + 1)) ≠ s.index s.dequeue_pos_ :=
    (index_ne (Nat.succ_pos k) (by omega) s.dequeue_pos_).symm
  constructor
  · change s.enqueue_pos_ = s.dequeue_pos_ + 1 + rest.length
    omega
  · change rest.length ≤ s.capacity.capacity_
    omega
  · intro k hk
    change Function.update s.sequence _ _ (s.index (s.dequeue_pos_ + 1 + k)) = _ ∧
      Function.update s.storage _ _ (s.index (s.dequeue_pos_ + 1 + k)) = _
    have hkept := h.full (k + 1) (Nat.succ_lt_succ hk)
    have hne := hother k (by omega)
    rw [Nat.add_right_comm, Nat.add_assoc, Function.update_of_ne hne, Function.update_of_ne hne]
    exact hkept
  · intro k hk hcap
    change Function.update s.sequence _ _ (s.index (s.dequeue_pos_ + 1 + k)) =
      s.dequeue_pos_ + 1 + k
    rcases Nat.lt_or_ge (k + 1) s.capacity.capacity_ with hin | hout
    · rw [Nat.add_right_comm, Nat.add_assoc, Function.update_of_ne (hother k hin)]
      exact h.free (k + 1) (Nat.succ_le_succ hk) hin
    · have hk : s.dequeue_pos_ + 1 + k = s.dequeue_pos_ + s.capacity.capacity_ := by
        change k < s.capacity.capacity_ at hcap
        omega
      rw [hk, hround, Function.update_self]

/-- **An empty queue has nothing**, and nothing is transferred. -/
theorem Sound.miss (h : Sound s []) (readThrows returnThrows : Bool) :
    ∃ s', s.dequeue readThrows returnThrows = some (s', none) ∧ Sound s' [] := by
  have htwo := s.capacity.two_le
  have hfree := h.free 0 le_rfl (by omega)
  rw [Nat.add_zero] at hfree
  refine ⟨_, by rw [SerialQueue.dequeue, if_neg (by omega), if_pos (by omega)], ?_⟩
  exact ⟨h.ends, h.le, h.full, h.free⟩

theorem enqueue_capacity {throws b : Bool} (h : s.enqueue item throws = some (s', b)) :
    s'.capacity = s.capacity := by
  rw [SerialQueue.enqueue] at h
  split at h
  next =>
    split at h <;> obtain ⟨rfl, -⟩ := pair_inj h <;> rfl
  next =>
    split at h
    next => obtain ⟨rfl, -⟩ := pair_inj h; rfl
    next => cases h

theorem dequeue_capacity {readThrows returnThrows : Bool} {y : Option R}
    (h : s.dequeue readThrows returnThrows = some (s', y)) : s'.capacity = s.capacity := by
  rw [SerialQueue.dequeue] at h
  split at h
  next =>
    obtain ⟨z, -, hz⟩ := Option.map_eq_some_iff.mp h
    split at hz
    next => obtain ⟨rfl, -⟩ := Prod.mk.inj hz; rfl
    next => split at hz <;> obtain ⟨rfl, -⟩ := Prod.mk.inj hz <;> rfl
  next =>
    split at h
    next => obtain ⟨rfl, -⟩ := pair_inj h; rfl
    next => cases h

/-- No call changes the capacity. -/
theorem call_capacity {r : Answer R} (h : s.call a = some (s', r)) : s'.capacity = s.capacity := by
  cases a with
  | enqueue item throws =>
    obtain ⟨⟨t, b⟩, ht, hr⟩ := Option.map_eq_some_iff.mp h
    obtain ⟨rfl, -⟩ := Prod.mk.inj hr
    exact enqueue_capacity ht
  | dequeue readThrows returnThrows =>
    obtain ⟨⟨t, y⟩, ht, hr⟩ := Option.map_eq_some_iff.mp h
    obtain ⟨rfl, -⟩ := Prod.mk.inj hr
    exact dequeue_capacity ht

/-- **A call without a throw** answers as a bounded queue, and keeps the slots. -/
theorem Sound.call {h : History R} (hs : Sound s h.held) (hquiet : Unthrown (s, h) a) :
    ∃ s', s.call a = some (s', (fifo s.capacity.capacity_ h.held a).2) ∧
      Sound s' (fifo s.capacity.capacity_ h.held a).1 := by
  cases a with
  | enqueue item throws =>
    rcases Nat.lt_or_eq_of_le hs.le with hlt | heq
    · have hthrows : throws = false := by
        cases throws with
        | false => rfl
        | true => exact absurd (hquiet rfl) hlt.ne
      subst hthrows
      obtain ⟨s', hs', hsound⟩ := hs.enqueue hlt item
      refine ⟨s', ?_, ?_⟩
      · rw [SerialQueue.call, hs', fifo, if_pos ⟨hlt, rfl⟩]
        rfl
      · rw [fifo, if_pos ⟨hlt, rfl⟩]
        exact hsound
    · obtain ⟨s', hs', hsound⟩ := hs.refuse heq item throws
      have hfull : ¬ (h.held.length < s.capacity.capacity_ ∧ throws = false) := fun hlt => by omega
      refine ⟨s', ?_, ?_⟩
      · rw [SerialQueue.call, hs', fifo, if_neg hfull]
        rfl
      · rw [fifo, if_neg hfull]
        exact hsound
  | dequeue readThrows returnThrows =>
    change (readThrows || returnThrows) = true → h.held = [] at hquiet
    generalize h.held = held at hs hquiet
    cases held with
    | nil =>
      obtain ⟨s', hs', hsound⟩ := hs.miss readThrows returnThrows
      refine ⟨s', ?_, hsound⟩
      rw [SerialQueue.call, hs']
      rfl
    | cons x rest =>
      have hthrows : readThrows = false ∧ returnThrows = false :=
        Bool.or_eq_false_iff.mp (Bool.eq_false_iff.mpr fun ht => List.cons_ne_nil x rest (hquiet ht))
      obtain ⟨rfl, rfl⟩ := hthrows
      obtain ⟨s', hs', hsound⟩ := hs.dequeue
      refine ⟨s', ?_, hsound⟩
      rw [SerialQueue.call, hs']
      rfl

/-- A call without throwing transfers makes none that throws. -/
theorem unthrown_of_quiet (p : SerialQueue R × History R) (ha : a.quiet = true) : Unthrown p a := by
  cases a with
  | enqueue item throws =>
    intro ht
    subst ht
    cases ha
  | dequeue readThrows returnThrows =>
    intro ht
    have hthrows : readThrows = false ∧ returnThrows = false := by simpa [Call.quiet] using ha
    rw [hthrows.1, hthrows.2] at ht
    cases ht

/-- **A queue whose slots stand right is usable.** -/
theorem Sound.usable (h : Sound s held) : Usable s held := by
  intro calls hcalls
  induction calls generalizing s held with
  | nil => rfl
  | cons a as ih =>
    obtain ⟨s', hs', hsound⟩ := h.call (h := { held := held })
      (unthrown_of_quiet _ (hcalls a List.mem_cons_self))
    have hrest := ih hsound fun b hb => hcalls b (List.mem_cons_of_mem a hb)
    rw [call_capacity hs'] at hrest
    rw [answers, hs', Option.bind_some, hrest]
    rfl

/-! ## After a throw -/

/-- A usable queue answers the next call, and is usable after it. -/
theorem Usable.call (h : Usable s held) (ha : a.quiet = true) :
    ∃ s', s.call a = some (s', (fifo s.capacity.capacity_ held a).2) ∧
      Usable s' (fifo s.capacity.capacity_ held a).1 := by
  have hfirst := h [a] fun b hb => List.mem_singleton.mp hb ▸ ha
  rw [answers] at hfirst
  obtain ⟨⟨s', r⟩, hs', hr⟩ := Option.bind_eq_some_iff.mp hfirst
  obtain rfl : r = (fifo s.capacity.capacity_ held a).2 := List.head_eq_of_cons_eq (Option.some.inj hr)
  refine ⟨s', hs', fun calls hcalls => ?_⟩
  have hall := h (a :: calls) (List.forall_mem_cons.mpr ⟨ha, hcalls⟩)
  rw [answers, hs', Option.bind_some] at hall
  obtain ⟨rs, hrs, hcons⟩ := Option.map_eq_some_iff.mp hall
  rw [call_capacity hs']
  exact hrs.trans (congrArg some (List.tail_eq_of_cons_eq hcons))

/-- **Behind these items nothing comes out**: the slot of the position after them is not full. -/
structure Short (s : SerialQueue R) (held : List R) : Prop where
  full : ∀ k < held.length, s.sequence (s.index (s.dequeue_pos_ + k)) = s.dequeue_pos_ + k + 1 ∧
    s.storage (s.index (s.dequeue_pos_ + k)) = held[k]?
  ends : s.sequence (s.index (s.dequeue_pos_ + held.length)) ≤ s.dequeue_pos_ + held.length

theorem Sound.short (h : Sound s held) : Short s held := by
  refine ⟨h.full, ?_⟩
  rcases Nat.lt_or_eq_of_le h.le with hlt | heq
  · exact (h.free _ le_rfl hlt).le
  · have hlast := h.last heq
    have htwo := s.capacity.two_le
    rw [h.ends] at hlast
    omega

/-- Where nothing is left, nothing comes out. -/
theorem Short.miss (h : Short s []) : ∃ s', s.dequeue false false = some (s', none) := by
  have hends := h.ends
  rw [List.length_nil, Nat.add_zero] at hends
  exact ⟨_, by rw [SerialQueue.dequeue, if_neg (by omega), if_pos (by omega)]⟩

/-- Taking one item leaves the others. -/
theorem Short.dequeue (h : Short s (x :: rest)) :
    ∃ s', s.dequeue false false = some (s', some x) ∧ Short s' rest := by
  obtain ⟨hsequence, hstorage⟩ := h.full 0 (Nat.zero_lt_succ _)
  rw [Nat.add_zero] at hsequence hstorage
  refine ⟨_, by rw [SerialQueue.dequeue, if_pos hsequence, hstorage]; rfl, ?_⟩
  constructor
  · intro k hk
    change Function.update s.sequence _ _ (s.index (s.dequeue_pos_ + 1 + k)) = _ ∧
      Function.update s.storage _ _ (s.index (s.dequeue_pos_ + 1 + k)) = _
    have hkept := h.full (k + 1) (Nat.succ_lt_succ hk)
    have hne : s.index (s.dequeue_pos_ + (k + 1)) ≠ s.index s.dequeue_pos_ := fun heq => by
      rw [heq] at hkept
      omega
    rw [Nat.add_right_comm, Nat.add_assoc, Function.update_of_ne hne, Function.update_of_ne hne]
    exact hkept
  · change Function.update s.sequence _ _ (s.index (s.dequeue_pos_ + 1 + rest.length)) ≤
      s.dequeue_pos_ + 1 + rest.length
    have hkept := h.ends
    rw [List.length_cons] at hkept
    rw [Nat.add_right_comm, Nat.add_assoc]
    rcases eq_or_ne (s.index (s.dequeue_pos_ + (rest.length + 1))) (s.index s.dequeue_pos_) with
      heq | hne
    · -- the same slot: a whole round lies between
      have hround : s.capacity.capacity_ ≤ rest.length + 1 := by
        by_contra hlt
        have hne := index_ne (s := s) (Nat.succ_pos rest.length) (by omega) s.dequeue_pos_
        exact hne heq.symm
      rw [heq, Function.update_self]
      omega
    · rw [Function.update_of_ne hne]
      exact hkept

/-- **A queue that cannot give all it holds is not usable.** -/
theorem Short.not_usable (h : Short s rest) (hlt : rest.length < held.length) : ¬ Usable s held := by
  induction rest generalizing s held with
  | nil =>
    intro husable
    obtain ⟨x, more, rfl⟩ := List.exists_cons_of_length_pos hlt
    obtain ⟨s', hs'⟩ := h.miss
    obtain ⟨t, ht, -⟩ := husable.call (a := .dequeue false false) rfl
    rw [SerialQueue.call, hs'] at ht
    cases ht
  | cons x rest ih =>
    intro husable
    obtain ⟨y, more, rfl⟩ := List.exists_cons_of_length_pos (Nat.zero_lt_of_lt hlt)
    obtain ⟨s', hs', hshort⟩ := h.dequeue
    obtain ⟨t, ht, hnext⟩ := husable.call (a := .dequeue false false) rfl
    rw [SerialQueue.call, hs'] at ht
    obtain ⟨rfl, -⟩ := pair_inj ht
    exact ih hshort (Nat.lt_of_succ_lt_succ hlt) hnext

/-- An item that is taken in behind a gap does not come out. -/
theorem Short.enqueue (h : Short s held) (hgap : s.dequeue_pos_ + held.length < s.enqueue_pos_)
    (hs : s.enqueue item false = some (s', true)) : Short s' held := by
  rw [SerialQueue.enqueue] at hs
  split at hs
  next hfree =>
    obtain ⟨rfl, -⟩ := pair_inj hs
    -- the slot that was free is none of those up to the gap: their numbers differ
    have hother (k : ℕ) (hk : s.sequence (s.index (s.dequeue_pos_ + k)) < s.enqueue_pos_) :
        s.index (s.dequeue_pos_ + k) ≠ s.index s.enqueue_pos_ := fun heq => by
      rw [heq] at hk
      omega
    constructor
    · intro k hk
      have hkept := h.full k hk
      have hne := hother k (by omega)
      change Function.update s.sequence _ _ (s.index (s.dequeue_pos_ + k)) = _ ∧
        Function.update s.storage _ _ (s.index (s.dequeue_pos_ + k)) = _
      rw [Function.update_of_ne hne, Function.update_of_ne hne]
      exact hkept
    · have hkept := h.ends
      change Function.update s.sequence _ _ (s.index (s.dequeue_pos_ + held.length)) ≤ _
      rw [Function.update_of_ne (hother held.length (by omega))]
      exact hkept
  next =>
    split at hs <;> cases hs

/-- **A copy that throws leaves its position claimed**: no item that is taken in later comes out. -/
theorem Sound.enqueue_throws (h : Sound s held) (hlt : held.length < s.capacity.capacity_)
    (hs : s.enqueue item true = some (s', b)) : ¬ Usable s' held := by
  intro husable
  have hcap := enqueue_capacity hs
  obtain ⟨hshort, hgap⟩ : Short s' held ∧ s'.dequeue_pos_ + held.length < s'.enqueue_pos_ := by
    rw [SerialQueue.enqueue, if_pos (h.next hlt)] at hs
    obtain ⟨rfl, -⟩ := pair_inj hs
    refine ⟨⟨h.short.full, h.short.ends⟩, ?_⟩
    change s.dequeue_pos_ + held.length < s.enqueue_pos_ + 1
    rw [h.ends]
    omega
  obtain ⟨t, ht, hnext⟩ := husable.call (a := .enqueue item false) rfl
  rw [fifo, if_pos ⟨hcap ▸ hlt, rfl⟩] at ht hnext
  obtain ⟨⟨u, accepted⟩, hu, hr⟩ := Option.map_eq_some_iff.mp ht
  obtain ⟨rfl, haccepted⟩ := Prod.mk.inj hr
  obtain rfl : accepted = true := Answer.enqueued.inj haccepted
  exact (hshort.enqueue hgap hu).not_usable (by simp) hnext

/-- **A transfer out of the queue that throws loses its item**: fewer items come out than are
held. -/
theorem Sound.dequeue_throws (h : Sound s (x :: rest)) {readThrows returnThrows : Bool}
    {y : Option R} (hthrows : (readThrows || returnThrows) = true)
    (hs : s.dequeue readThrows returnThrows = some (s', y)) : ¬ Usable s' (x :: rest) := by
  have hlost : Short s' rest := by
    obtain ⟨hsequence, hstorage⟩ := h.full 0 (Nat.zero_lt_succ _)
    rw [Nat.add_zero] at hsequence hstorage
    rw [SerialQueue.dequeue, if_pos hsequence, hstorage] at hs
    cases readThrows with
    | false =>
      -- the item has left the queue, and the others stand as after a call without a throw
      obtain rfl : returnThrows = true := hthrows
      obtain ⟨rfl, -⟩ := pair_inj hs
      obtain ⟨t, ht, hsound⟩ := h.dequeue
      rw [SerialQueue.dequeue, if_pos hsequence, hstorage] at ht
      obtain ⟨rfl, -⟩ := pair_inj ht
      exact ⟨hsound.short.full, hsound.short.ends⟩
    | true =>
      obtain ⟨rfl, -⟩ := pair_inj hs
      have hends := h.short.ends
      rw [List.length_cons] at hends
      constructor
      · intro k hk
        have hkept := h.full (k + 1) (Nat.succ_lt_succ hk)
        change s.sequence (s.index (s.dequeue_pos_ + 1 + k)) = _ ∧
          s.storage (s.index (s.dequeue_pos_ + 1 + k)) = _
        rw [Nat.add_right_comm, Nat.add_assoc]
        exact hkept
      · change s.sequence (s.index (s.dequeue_pos_ + 1 + rest.length)) ≤
          s.dequeue_pos_ + 1 + rest.length
        rw [Nat.add_right_comm, Nat.add_assoc]
        exact hends
  exact hlost.not_usable (Nat.lt_succ_self _)

/-- **A transfer that throws ends it.** -/
theorem Sound.unthrown {h : History R} {r : Answer R} (hs : Sound s h.held)
    (hcall : s.call a = some (s', r)) (husable : Usable s' (fifo s.capacity.capacity_ h.held a).1) :
    Unthrown (s, h) a := by
  cases a with
  | enqueue item throws =>
    intro ht
    by_contra hne
    have hlt : h.held.length < s.capacity.capacity_ := Nat.lt_of_le_of_ne hs.le hne
    subst ht
    obtain ⟨⟨t, b⟩, hthrown, hr⟩ := Option.map_eq_some_iff.mp hcall
    obtain ⟨rfl, -⟩ := Prod.mk.inj hr
    rw [fifo, if_neg (fun hq => absurd hq.2 Bool.noConfusion)] at husable
    exact hs.enqueue_throws hlt hthrown husable
  | dequeue readThrows returnThrows =>
    intro ht
    by_contra hne
    change h.held ≠ [] at hne
    generalize h.held = held at hs husable hne
    obtain ⟨x, rest, rfl⟩ := List.exists_cons_of_ne_nil hne
    obtain ⟨⟨t, y⟩, hthrown, hr⟩ := Option.map_eq_some_iff.mp hcall
    obtain ⟨rfl, -⟩ := Prod.mk.inj hr
    rw [fifo, if_pos ht] at husable
    exact hs.dequeue_throws ht hthrown husable

/-! ## Whole runs -/

/-- **The queue serves its callers exactly as long as no transfer throws.**  Along every sequence of
calls, whichever of their transfers throw: each call is answered as by a bounded queue that a failed
transfer leaves as it was, and the queue is usable after it, exactly if none of them makes a transfer
that throws. -/
theorem transfers_contained_iff (c : QueueCapacity) (calls : List (Call R)) :
    (queue R c).Always Serves ({ capacity := c }, {}) calls ↔
      (queue R c).Allowed Unthrown ({ capacity := c }, {}) calls := by
  refine Machine.always_iff_allowed_of_invariant
    (I := fun p => p.2.answers = p.2.expected ∧ Sound p.1 p.2.held) ?_ ?_ ?_
    ⟨rfl, sound_construct c⟩ calls
  · rintro ⟨s, h⟩ a ⟨s', h'⟩ ⟨hsame, hs⟩ hquiet hstep
    obtain ⟨hcall, hrecord⟩ := Machine.withHistory_step.mp hstep
    obtain ⟨t, ht, hsound⟩ := hs.call hquiet
    change (s.call a).map Prod.fst = some s' at hcall
    rw [ht] at hcall
    obtain rfl : t = s' := Option.some.inj hcall
    rw [← hrecord]
    refine ⟨?_, hsound⟩
    change h.answers ++ ((s.call a).map Prod.snd).toList = h.expected ++ _
    rw [ht, hsame]
    rfl
  · exact fun p hp => ⟨hp.1, hp.2.usable⟩
  · rintro ⟨s, h⟩ a ⟨s', h'⟩ ⟨-, hs⟩ hstep ⟨-, husable⟩
    obtain ⟨hcall, hrecord⟩ := Machine.withHistory_step.mp hstep
    obtain ⟨⟨t, r⟩, ht, rfl⟩ := Option.map_eq_some_iff.mp hcall
    rw [← hrecord] at husable
    exact hs.unthrown ht husable

/-- **One copy throws, and nothing comes out any more**: an item is taken in behind it, and the queue
says that it is empty. -/
theorem throw_blocks_queue :
    ¬ ∀ p, (queue ℕ ThreadSafeQueue.smallest).Reachable p → Serves p := by
  intro hall
  have hrun : ((queue ℕ ThreadSafeQueue.smallest).exec
      ({ capacity := ThreadSafeQueue.smallest }, {}) [.enqueue 7 true]).any
      (fun p => decide (p.1.answers [.enqueue 8 false, .dequeue false false] =
          some [.enqueued true, .dequeued none]) &&
        decide (fifoAnswers p.1.capacity.capacity_ p.2.held
          [.enqueue 8 false, .dequeue false false] = [.enqueued true, .dequeued (some 8)])) = true := by
    decide +kernel
  obtain ⟨p, hp, hend⟩ := (Option.any_eq_true _ _).mp hrun
  obtain ⟨hanswers, hexpected⟩ := (Bool.and_eq_true _ _).mp hend
  have hreach : (queue ℕ ThreadSafeQueue.smallest).Reachable p :=
    Machine.Reachable.exec (.init ⟨rfl, rfl⟩) hp
  have husable := (hall p hreach).2 [.enqueue 8 false, .dequeue false false] (by decide)
  rw [of_decide_eq_true hanswers, of_decide_eq_true hexpected] at husable
  exact absurd husable (by decide)

end SerialQueue

end AxonVex
